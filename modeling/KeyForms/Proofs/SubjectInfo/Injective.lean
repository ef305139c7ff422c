import KeyForms.Proofs.SubjectInfo.RoundTrip

/-!
# What a subject info says of its key

A strict reader takes a subject info apart in one way only, so two that are the
same octets say the same (`SubjectInfo.ReadsAs.unique`). Together with what is
read of those that are written this makes writing injective, as far as it can
be: the coordinates of a point are put one after the other, and where the first
one ends is lost (`Curve.subjectInfo_eq_iff`). Keys of the two kinds never have
the same subject info. One identifier has two elements, the other has one.

The heads in a subject info have different forms, each by the size of its own
content, and none of this plays a part here. The reader knows them all.
-/

namespace KeyForms

namespace Oid

theorem element_inj {oid oid' : Oid} : oid.element = oid'.element ↔ oid = oid' := by
  constructor
  · intro h
    obtain ⟨content⟩ := oid
    cases h
    rfl
  · rintro rfl
    rfl

end Oid

/-- Curves have different identifiers. -/
theorem Curve.oid_inj {c c' : Curve} : c.oid = c'.oid ↔ c = c' := by
  cases c <;> cases c' <;> decide

namespace SubjectInfo

variable {info key key' : Octets} {identifier identifier' : List Der.Element}

/-- **A subject info is read in one way only.** -/
theorem ReadsAs.unique (h : ReadsAs info identifier key) (h' : ReadsAs info identifier' key') :
    identifier = identifier' ∧ key = key' := by
  obtain ⟨outer, algorithm, houter, hparts, hidentifier⟩ := h
  obtain ⟨outer', algorithm', houter', hparts', hidentifier'⟩ := h'
  -- from the outside to the inside, each level is what the reader says of the one before
  rw [houter] at houter'
  cases houter'
  rw [hparts] at hparts'
  cases hparts'
  rw [hidentifier] at hidentifier'
  exact ⟨Option.some.inj hidentifier', rfl⟩

end SubjectInfo

/-- **Points have one subject info when they are on one curve** and have the
same coordinates, put one after the other. -/
theorem Curve.subjectInfo_eq_iff {c c' : Curve} {x y x' y' info : Octets}
    (h : c.subjectInfo x y = .ok info) :
    c'.subjectInfo x' y' = c.subjectInfo x y ↔ c' = c ∧ x' ++ y' = x ++ y := by
  constructor
  · intro heq
    obtain ⟨hidentifier, hkey⟩ := (SubjectInfo.readsAs_of_curve (heq.trans h)).unique
      (SubjectInfo.readsAs_of_curve h)
    have hoid : c'.oid.element = c.oid.element := (List.cons.inj (List.cons.inj hidentifier).2).1
    exact ⟨oid_inj.1 (Oid.element_inj.1 hoid), (List.cons.inj hkey).2⟩
  · rintro ⟨rfl, heq⟩
    exact subjectInfo_congr heq

/-- **Ed25519 keys have different subject infos.** -/
theorem Ed25519.subjectInfo_eq_iff {key key' info : Octets} (h : subjectInfo key = .ok info) :
    subjectInfo key' = subjectInfo key ↔ key' = key := by
  constructor
  · intro heq
    exact ((SubjectInfo.readsAs_of_ed25519 (heq.trans h)).unique
      (SubjectInfo.readsAs_of_ed25519 h)).2
  · rintro rfl
    rfl

/-- **No point has the subject info of an Ed25519 key.** -/
theorem Curve.subjectInfo_ne {c : Curve} {x y key info : Octets}
    (h : Ed25519.subjectInfo key = .ok info) : c.subjectInfo x y ≠ .ok info := by
  intro hpoint
  have hidentifier := ((SubjectInfo.readsAs_of_curve hpoint).unique
    (SubjectInfo.readsAs_of_ed25519 h)).1
  -- two elements are not one
  cases hidentifier

namespace SubjectInfo

/-- **A subject info tells its key.** The reader takes a row of elements only if
it is made of their forms, with lengths in the shortest form and with nothing
left over. It reads the subject info of a point as a sequence of the identifiers
of the family and of the curve, and of whole octets that are the marker and the
coordinates, and the subject info of an Ed25519 key as a sequence of the one
identifier and of the octets of the key. So what is written for two points is
the same exactly when the curve is the same and the coordinates are the same
octets together; what is written for two Ed25519 keys is the same exactly when
the keys are; and what is written for a point is never what is written for an
Ed25519 key. -/
theorem subjectInfo_reads_injective :
    (∀ s elements, Der.Element.readAll s = some elements →
      ∃ forms, List.Forall₂ Der.Element.IsForm elements forms ∧ s = forms.flatten)
      ∧ (Oid.ecPublicKey.arcs = [1, 2, 840, 10045, 2, 1]
        ∧ Curve.p256.oid.arcs = [1, 2, 840, 10045, 3, 1, 7]
        ∧ Curve.p384.oid.arcs = [1, 3, 132, 0, 34] ∧ Curve.p521.oid.arcs = [1, 3, 132, 0, 35]
        ∧ Oid.ed25519.arcs = [1, 3, 101, 112])
      ∧ (∀ (c : Curve) (x y info : Octets), c.subjectInfo x y = .ok info →
        ReadsAs info [Oid.ecPublicKey.element, c.oid.element] (0x04 :: (x ++ y))
          ∧ ∀ (c' : Curve) (x' y' : Octets),
            c'.subjectInfo x' y' = c.subjectInfo x y ↔ c' = c ∧ x' ++ y' = x ++ y)
      ∧ ∀ key info : Octets, Ed25519.subjectInfo key = .ok info →
        ReadsAs info [Oid.ed25519.element] key
          ∧ (∀ key', Ed25519.subjectInfo key' = Ed25519.subjectInfo key ↔ key' = key)
          ∧ ∀ (c : Curve) (x y : Octets), c.subjectInfo x y ≠ .ok info := by
  refine ⟨?strict, by decide, ?point, ?ed25519⟩
  case strict =>
    intro s elements h
    exact Der.Element.exists_forms_of_readUpTo h
  case point =>
    intro c x y info h
    exact ⟨readsAs_of_curve h, fun c' x' y' => Curve.subjectInfo_eq_iff h⟩
  case ed25519 =>
    intro key info h
    exact ⟨readsAs_of_ed25519 h, fun key' => Ed25519.subjectInfo_eq_iff h,
      fun c x y => Curve.subjectInfo_ne h⟩

/-- Coordinates of 55 octets: the bit string has a short head and the sequence
around it has a longer one. Moving an octet from one coordinate to the other
changes nothing, and moving to another curve does. -/
theorem subjectInfo_reads_injective_headForms :
    ∃ info, Curve.p256.subjectInfo (List.replicate 55 1) (List.replicate 55 2) = .ok info
      ∧ info.take 3 = [0x30, 0x81, 0x87] ∧ (info.drop 24).take 4 = [0x03, 0x70, 0x00, 0x04]
      ∧ ReadsAs info [Oid.ecPublicKey.element, Curve.p256.oid.element]
        (0x04 :: (List.replicate 55 1 ++ List.replicate 55 2))
      ∧ Curve.p256.subjectInfo (List.replicate 54 1) (1 :: List.replicate 55 2) = .ok info
      ∧ Curve.p384.subjectInfo (List.replicate 55 1) (List.replicate 55 2) ≠ .ok info := by
  have hinfo : Curve.p256.subjectInfo (List.replicate 55 1) (List.replicate 55 2)
      = .ok (0x30 :: 0x81 :: 0x87 :: (Curve.p256.algorithmIdentifier
        ++ (0x03 :: 0x70 :: 0x00 :: 0x04 :: (List.replicate 55 1 ++ List.replicate 55 2)))) := by
    decide +kernel
  obtain ⟨-, -, hpoint, -⟩ := subjectInfo_reads_injective
  obtain ⟨hreads, hinj⟩ := hpoint _ _ _ _ hinfo
  refine ⟨_, hinfo, by decide, by decide, hreads, ?_, ?_⟩
  · exact ((hinj .p256 _ _).2 ⟨rfl, by decide⟩).trans hinfo
  · intro h
    exact absurd ((hinj .p384 _ _).1 (h.trans hinfo.symm)).1 (by decide)

end SubjectInfo

end KeyForms
