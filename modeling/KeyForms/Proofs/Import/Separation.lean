import KeyForms.Proofs.Import.Point
import KeyForms.Proofs.SubjectInfo.Injective

/-!
# A subject info is taken as what it was written for

The octets of a key do not tell its kind. The same coordinates can be written into
a subject info of any of the three curves, also into one where they are no point,
and nothing keeps the octets of an Ed25519 key from beginning with the marker. So
it is the algorithm identifier that has to keep the kinds apart. A subject info
that was written for one kind of key and is handed over as another one is refused
for its identifier (`Native.importEc_of_curve_ne`, `Native.importEc_of_ed25519`,
`Native.importEd25519_of_curve`), and the key is not looked at.

Refusing everything would do that, too. A point that is handed over as what it is
written for is taken (`Native.importEc_of_isCoordinates`).
-/

namespace KeyForms

theorem Oid.ed25519_ne_ecPublicKey : ed25519 ≠ ecPublicKey := by
  decide

namespace SubjectInfo

variable {info : SubjectInfo} {c c' : Curve}

/-- The algorithm is compared before anything else. -/
theorem point_of_algorithm_ne (h : info.algorithm ≠ Oid.ecPublicKey) :
    info.point c = .error (.expected Oid.ecPublicKey) := by
  rw [point, pointAlgorithm_eq, if_neg h]

/-- **The curve is compared before the key is looked at**, so it does not matter
whether the key would be a point of the curve that is expected. -/
theorem point_of_curve_ne (halgorithm : info.algorithm = Oid.ecPublicKey)
    (hparameters : info.parameters = some c'.oid.element) (hne : c' ≠ c) :
    info.point c = .error (.expected c.oid) := by
  rw [point, pointAlgorithm_eq, if_pos halgorithm, hparameters, pointParameter_eq]
  simp only [Curve.ofElement?_oid, if_neg (mt Curve.oid_inj.1 hne)]

/-- An Ed25519 key is looked for under its own algorithm only. -/
theorem ed25519Key_of_algorithm_ne (h : info.algorithm ≠ Oid.ed25519) :
    info.ed25519Key = .error (.expected Oid.ed25519) := by
  rw [ed25519Key, ed25519Algorithm_eq, if_neg h]

end SubjectInfo

namespace Native

variable {kinds : KeyKinds} {c c' : Curve} {x y key info : Octets}

/-! ## What another kind of key is refused for -/

/-- What is not read as the subject info of a point is refused for what the reader
says. -/
theorem importEc_of_refusal {refusal : SubjectInfo.Refusal} (hkind : kinds (.ec c) = true)
    (h : Curve.Point.ofSubjectInfo c info = .error refusal) :
    (provider kinds).importEc c info = .error (.info refusal) := by
  show guarded kinds (.ec c) _ = _
  rw [guarded, if_pos hkind, h]

/-- **A point of one curve is not taken as a point of another**, whatever its
coordinates are. -/
theorem importEc_of_curve_ne (hkind : kinds (.ec c) = true) (hne : c' ≠ c)
    (h : c'.subjectInfo x y = .ok info) :
    (provider kinds).importEc c info = .error (.info (.expected c.oid)) := by
  refine importEc_of_refusal hkind ?_
  rw [Curve.Point.ofSubjectInfo, SubjectInfo.ofOctets?_of_curve h]
  exact SubjectInfo.point_of_curve_ne rfl rfl hne

/-- **An Ed25519 key is not taken as a point.** -/
theorem importEc_of_ed25519 (hkind : kinds (.ec c) = true)
    (h : Ed25519.subjectInfo key = .ok info) :
    (provider kinds).importEc c info = .error (.info (.expected Oid.ecPublicKey)) := by
  refine importEc_of_refusal hkind ?_
  rw [Curve.Point.ofSubjectInfo, SubjectInfo.ofOctets?_of_ed25519 h]
  exact SubjectInfo.point_of_algorithm_ne Oid.ed25519_ne_ecPublicKey

/-- **A point is not taken as an Ed25519 key.** -/
theorem importEd25519_of_curve (hkind : kinds .ed25519 = true)
    (h : c.subjectInfo x y = .ok info) :
    (provider kinds).importEd25519 info = .error (.info (.expected Oid.ed25519)) := by
  have hkey : Ed25519.Key.ofSubjectInfo info = .error (.expected Oid.ed25519) := by
    rw [Ed25519.Key.ofSubjectInfo, SubjectInfo.ofOctets?_of_curve h]
    exact SubjectInfo.ed25519Key_of_algorithm_ne Oid.ed25519_ne_ecPublicKey.symm
  show guarded kinds .ed25519 _ = _
  rw [guarded, if_pos hkind, hkey]

/-! ## What is taken -/

/-- **A point is taken as what it is written for**, and the key has its
coordinates. -/
theorem importEc_of_isCoordinates (hkind : kinds (.ec c) = true) (h : c.IsCoordinates (x ++ y)) :
    ∃ info point, c.subjectInfo x y = .ok info
      ∧ (provider kinds).importEc c info = .ok (.ec c point) ∧ point.coordinates = x ++ y := by
  obtain ⟨point, hpoint⟩ := Curve.exists_coordinates_eq_iff.2 h
  obtain ⟨info, hinfo⟩ := Curve.exists_subjectInfo_of_length h.1
  have hread : Curve.Point.ofOctets? c (RawPoint.ofCoordinates x y) = some point :=
    Curve.Point.ofOctets?_eq_some_iff.2 hpoint
  refine ⟨info, point, hinfo, ?_, hpoint⟩
  show (provider kinds).submit (.ec c info) = _
  rw [submit_ec hkind hinfo, hread]

/-- **A subject info is taken as what it was written for and as nothing else.** One
that is written for a curve is refused on another curve, which is named in the
refusal; one that is written for an Ed25519 key is refused on every curve; and one
that is written for a point is refused as an Ed25519 key. This is so for all
coordinates and all keys, also for those that would be keys of the kind they are
handed over as. On its own curve a point is taken whenever its coordinates are
together as long as they should be and their halves are those of a point. -/
theorem import_as_written :
    (∀ (c c' : Curve) (x y info : Octets), c' ≠ c → c'.subjectInfo x y = .ok info →
      (provider .all).importEc c info = .error (.info (.expected c.oid)))
      ∧ (∀ (c : Curve) (key info : Octets), Ed25519.subjectInfo key = .ok info →
        (provider .all).importEc c info = .error (.info (.expected Oid.ecPublicKey)))
      ∧ (∀ (c : Curve) (x y info : Octets), c.subjectInfo x y = .ok info →
        (provider .all).importEd25519 info = .error (.info (.expected Oid.ed25519)))
      ∧ ∀ (c : Curve) (x y : Octets), c.IsCoordinates (x ++ y) →
        ∃ info point, c.subjectInfo x y = .ok info
          ∧ (provider .all).importEc c info = .ok (.ec c point) ∧ point.coordinates = x ++ y := by
  refine ⟨?otherCurve, ?ed25519, ?point, ?taken⟩
  case otherCurve =>
    intro c c' x y info hne h
    exact importEc_of_curve_ne (KeyKinds.all_apply (.ec c)) hne h
  case ed25519 =>
    intro c key info h
    exact importEc_of_ed25519 (KeyKinds.all_apply (.ec c)) h
  case point =>
    intro c x y info h
    exact importEd25519_of_curve (KeyKinds.all_apply .ed25519) h
  case taken =>
    intro c x y h
    exact importEc_of_isCoordinates (KeyKinds.all_apply (.ec c)) h

/-- The base point of the 256-bit curve, cut one octet before the middle: written
for its own curve it is taken there and not as an Ed25519 key, and written for the
next curve it is refused, although the coordinates are the same. The raw point, as
the octets of an Ed25519 key, is refused, too. -/
theorem import_as_written_base :
    Curve.p256.IsCoordinates (Curve.Point.base.coordinates.take 31
        ++ Curve.Point.base.coordinates.drop 31)
      ∧ (∃ info point, Curve.p256.subjectInfo (Curve.Point.base.coordinates.take 31)
          (Curve.Point.base.coordinates.drop 31) = .ok info
        ∧ (provider .all).importEc .p256 info = .ok (.ec .p256 point)
        ∧ (provider .all).importEd25519 info = .error (.info (.expected Oid.ed25519)))
      ∧ (∃ info, Curve.p384.subjectInfo (Curve.Point.base.coordinates.take 31)
          (Curve.Point.base.coordinates.drop 31) = .ok info
        ∧ (provider .all).importEc .p256 info = .error (.info (.expected Oid.secp256r1)))
      ∧ ∃ info, Ed25519.subjectInfo (Curve.Point.uncompressedTag :: Curve.Point.base.coordinates)
          = .ok info
        ∧ (provider .all).importEc .p256 info = .error (.info (.expected Oid.ecPublicKey)) := by
  obtain ⟨hotherCurve, hed25519, hpoint, htaken⟩ := import_as_written
  have hcoordinates : Curve.p256.IsCoordinates (Curve.Point.base.coordinates.take 31
      ++ Curve.Point.base.coordinates.drop 31) := by
    decide +kernel
  refine ⟨hcoordinates, ?_, ?_, ?_⟩
  · obtain ⟨info, point, hinfo, hkey, -⟩ := htaken _ _ _ hcoordinates
    exact ⟨info, point, hinfo, hkey, hpoint _ _ _ _ hinfo⟩
  · obtain ⟨info, hinfo⟩ := Curve.p384.exists_subjectInfo (x := Curve.Point.base.coordinates.take 31)
      (y := Curve.Point.base.coordinates.drop 31) (by decide +kernel)
    exact ⟨info, hinfo, hotherCurve _ _ _ _ _ (by decide) hinfo⟩
  · obtain ⟨info, hinfo⟩ := (Ed25519.outcome_subjectInfo
      (Curve.Point.uncompressedTag :: Curve.Point.base.coordinates)).1.2 (by decide +kernel)
    exact ⟨info, hinfo, hed25519 _ _ _ hinfo⟩

end Native

end KeyForms
