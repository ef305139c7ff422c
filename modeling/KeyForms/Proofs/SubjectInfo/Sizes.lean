import KeyForms.Proofs.SubjectInfo.RoundTrip

/-!
# How long a key can be

A subject info is written unless it is too long, and this module says when it
is. There are two lengths that may be too long: that of the bit string, which
comes first, and that of the sequence around it. Between the two is a band of
keys whose bit string is written and whose subject info is not. The error
names the length that could not be written, so it tells the two cases apart
(`SubjectInfo.ofIdentifier_limits`).

For keys near the limit every head that depends on the key has its longest
form. So the limit differs from one curve to another by as much as their
algorithm identifiers differ in length, and by nothing else.

The lengths that are written are never other numbers than they should be. A
form that has too few digits for a length is not chosen for it
(`Der.isLength_of_lengthOctets`), and every length in a subject info is written
in that way (`SubjectInfo.IsForm`).
-/

namespace KeyForms

namespace SubjectInfo

variable (identifier : Octets) {content : Octets}

/-- A key may be too long for a bit string. -/
theorem ofIdentifier_of_le (h : Der.maxLength ≤ content.length) :
    ofIdentifier identifier content = .error ⟨content.length + 1⟩ := by
  have hkey : Der.bitString content = .error ⟨content.length + 1⟩ :=
    Der.Element.encode_eq_error_iff.2 ⟨Nat.lt_succ_of_le h, rfl⟩
  rw [ofIdentifier, hkey]
  rfl

/-- Otherwise everything depends on the sequence. -/
theorem exists_ofIdentifier_eq (h : content.length < Der.maxLength) :
    ∃ key, ofIdentifier identifier content = Der.sequence [identifier, key]
      ∧ [identifier, key].flatten.length
        = content.length + (identifier.length + (Der.lengthWidth (content.length + 1) + 2)) := by
  obtain ⟨key, hkey, hlength⟩ := Der.Element.exists_encode
    (e := ⟨Der.Tag.bitString, 0 :: content⟩) (show content.length + 1 ≤ _ from h)
  rw [List.length_cons] at hlength
  refine ⟨key, ?_, ?_⟩
  · rw [ofIdentifier, Der.bitString, hkey]
    rfl
  · rw [List.flatten_cons, List.flatten_cons, List.flatten_nil, List.append_nil,
      List.length_append, hlength]
    ring

/-- **The outcome of writing a subject info**, by the lengths of its parts. The
key has five octets in front of it that do not belong to the identifier, when
it is long: the tag and the three octets of the length of the bit string, and
the octet that counts the unused bits. -/
theorem ofIdentifier_limits (content : Octets) (h : identifier.length < 0x80) :
    ((∃ info, ofIdentifier identifier content = .ok info)
        ↔ content.length + (identifier.length + 5) ≤ Der.maxLength)
      ∧ (Der.maxLength ≤ content.length →
        ofIdentifier identifier content = .error ⟨content.length + 1⟩)
      ∧ (content.length < Der.maxLength →
        Der.maxLength < content.length + (identifier.length + 5) →
        ofIdentifier identifier content = .error ⟨content.length + (identifier.length + 5)⟩) := by
  have hmax : Der.maxLength = 0xffff := rfl
  rcases Nat.lt_or_ge content.length Der.maxLength with hlt | hge
  · obtain ⟨key, heq, hwhole⟩ := exists_ofIdentifier_eq identifier hlt
    -- the bit string has a length of three octets, or is far from the limit
    have hwidth : Der.lengthWidth (content.length + 1) = 3
        ∨ Der.lengthWidth (content.length + 1) ≤ 3 ∧ content.length < 0xff := by
      unfold Der.lengthWidth
      split
      · omega
      · split <;> omega
    refine ⟨?_, fun hge => absurd hlt (Nat.not_lt.2 hge), fun _ hlong => ?_⟩
    · rw [heq, Der.sequence, Der.Element.exists_encode_iff]
      show [identifier, key].flatten.length ≤ Der.maxLength ↔ _
      rw [hwhole]
      omega
    · have hthree : [identifier, key].flatten.length
          = content.length + (identifier.length + 5) := by
        rw [hwhole]
        omega
      rw [← hthree] at hlong
      rw [heq, Der.sequence, ← hthree]
      exact Der.Element.encode_eq_error_iff.2 ⟨hlong, rfl⟩
  · have herror := ofIdentifier_of_le identifier hge
    refine ⟨?_, fun _ => herror, fun hlt => absurd hlt (Nat.not_lt.2 hge)⟩
    rw [herror]
    constructor
    · rintro ⟨info, ⟨⟩⟩
    · intro hle
      omega

end SubjectInfo

/-! ## The limits -/

namespace Curve

/-- **The most octets that the coordinates of a point can have** together, for
its subject info to be written. -/
def coordinatesLimit : Curve → Nat
  | p256 => 65508
  | p384 => 65511
  | p521 => 65511

/-- The octets of a long subject info that are neither its coordinates nor its
outermost head. -/
def infoOverhead : Curve → Nat
  | p256 => 27
  | p384 => 24
  | p521 => 24

theorem coordinatesLimit_add (c : Curve) : c.coordinatesLimit + c.infoOverhead = Der.maxLength := by
  cases c <;> rfl

theorem length_algorithmIdentifier (c : Curve) :
    c.algorithmIdentifier.length + 6 = c.infoOverhead := by
  cases c <;> rfl

theorem infoOverhead_le (c : Curve) : c.infoOverhead ≤ 27 := by
  cases c <;> decide

/-- **The outcome of writing the subject info of a point.** -/
theorem outcome_subjectInfo (c : Curve) (x y : Octets) :
    ((∃ info, c.subjectInfo x y = .ok info) ↔ x.length + y.length ≤ c.coordinatesLimit)
      ∧ (65534 ≤ x.length + y.length →
        c.subjectInfo x y = .error ⟨x.length + y.length + 2⟩)
      ∧ (c.coordinatesLimit < x.length + y.length → x.length + y.length < 65534 →
        c.subjectInfo x y = .error ⟨x.length + y.length + c.infoOverhead⟩) := by
  have hmax : Der.maxLength = 65535 := rfl
  have hlimit := c.coordinatesLimit_add
  have hidentifier := c.length_algorithmIdentifier
  have hoverhead := c.infoOverhead_le
  have hpoint : (RawPoint.ofCoordinates x y).length = x.length + y.length + 1 := by
    rw [RawPoint.ofCoordinates, List.length_cons, List.length_append]
  have hwhole : x.length + y.length + 1 + (c.algorithmIdentifier.length + 5)
      = x.length + y.length + c.infoOverhead := by omega
  obtain ⟨hok, hcontent, hsequence⟩ := SubjectInfo.ofIdentifier_limits
    c.algorithmIdentifier (RawPoint.ofCoordinates x y) (by omega)
  rw [hpoint, hwhole] at hok hsequence
  rw [hpoint] at hcontent
  rw [c.subjectInfo_eq]
  refine ⟨hok.trans ?_, fun hlong => hcontent ?_, fun hlong hlt => hsequence ?_ ?_⟩
  all_goals omega

/-- **A subject info is written for all but very long coordinates.** -/
theorem exists_subjectInfo (c : Curve) {x y : Octets} (h : x.length + y.length ≤ 65508) :
    ∃ info, c.subjectInfo x y = .ok info := by
  have hlimit : 65508 ≤ c.coordinatesLimit := by
    cases c <;> decide
  exact (c.outcome_subjectInfo x y).1.2 (h.trans hlimit)

/-- A pair of field elements is never too long. -/
theorem exists_subjectInfo_of_length {c : Curve} {x y : Octets}
    (h : (x ++ y).length = 2 * c.fieldOctets) : ∃ info, c.subjectInfo x y = .ok info := by
  have hlimit : 2 * c.fieldOctets ≤ 65508 := by
    cases c <;> decide
  rw [List.length_append] at h
  exact c.exists_subjectInfo (h.trans_le hlimit)

end Curve

/-- **The outcome of writing the subject info of an Ed25519 key.** -/
theorem Ed25519.outcome_subjectInfo (key : Octets) :
    ((∃ info, subjectInfo key = .ok info) ↔ key.length ≤ 65523)
      ∧ (65535 ≤ key.length → subjectInfo key = .error ⟨key.length + 1⟩)
      ∧ (65523 < key.length → key.length < 65535 →
        subjectInfo key = .error ⟨key.length + 12⟩) := by
  have hmax : Der.maxLength = 65535 := rfl
  have hidentifier : algorithmIdentifier.length + 5 = 12 := rfl
  obtain ⟨hok, hcontent, hsequence⟩ := SubjectInfo.ofIdentifier_limits
    algorithmIdentifier key (by decide)
  rw [hidentifier] at hok hsequence
  have heq : subjectInfo key = SubjectInfo.ofIdentifier algorithmIdentifier key := rfl
  rw [heq]
  refine ⟨hok.trans ?_, fun hlong => hcontent hlong, fun hlong hlt => hsequence hlt ?_⟩
  all_goals omega

/-! ## Lengths are not cut -/

namespace SubjectInfo

/-- **Octets are the form of a subject info**, with every length in it that of the
content after it: the elements of the identifier, and the octets of the key. -/
inductive IsForm (elements : List Der.Element) (content : Octets) : Octets → Prop where
  /-- The forms from the inside to the outside. -/
  | mk {parts : List Octets} {identifier key info : Octets}
    (hparts : List.Forall₂ Der.Element.IsForm elements parts)
    (hidentifier : (Der.Element.mk Der.Tag.sequence parts.flatten).IsForm identifier)
    (hkey : (Der.Element.mk Der.Tag.bitString (0 :: content)).IsForm key)
    (hinfo : (Der.Element.mk Der.Tag.sequence [identifier, key].flatten).IsForm info) :
    IsForm elements content info

/-- The subject info of a point is a form. -/
theorem isForm_of_curve {c : Curve} {x y info : Octets} (h : c.subjectInfo x y = .ok info) :
    IsForm [Oid.ecPublicKey.element, c.oid.element] (RawPoint.ofCoordinates x y) info := by
  obtain ⟨family, hfamily, h⟩ := exists_of_bind_eq_ok h
  obtain ⟨curve, hcurve, h⟩ := exists_of_bind_eq_ok h
  obtain ⟨identifier, hidentifier, h⟩ := exists_of_bind_eq_ok h
  obtain ⟨key, hkey, hinfo⟩ := exists_of_bind_eq_ok h
  have hparts : List.Forall₂ Der.Element.IsForm [Oid.ecPublicKey.element, c.oid.element]
      [family, curve] :=
    .cons (Der.Element.isForm_of_encode hfamily) (.cons (Der.Element.isForm_of_encode hcurve) .nil)
  exact .mk hparts (Der.Element.isForm_of_encode hidentifier) (Der.Element.isForm_of_encode hkey)
    (Der.Element.isForm_of_encode hinfo)

/-- The subject info of an Ed25519 key is a form. -/
theorem isForm_of_ed25519 {key info : Octets} (h : Ed25519.subjectInfo key = .ok info) :
    IsForm [Oid.ed25519.element] key info := by
  obtain ⟨bits, hbits, hinfo⟩ := exists_of_bind_eq_ok h
  obtain ⟨oid, hoid, hidentifier⟩ := exists_of_bind_eq_ok Ed25519.algorithmIdentifier_eq
  have hparts : List.Forall₂ Der.Element.IsForm [Oid.ed25519.element] [oid] :=
    .cons (Der.Element.isForm_of_encode hoid) .nil
  exact .mk hparts (Der.Element.isForm_of_encode hidentifier) (Der.Element.isForm_of_encode hbits)
    (Der.Element.isForm_of_encode hinfo)

/-- **How long a key can be.** The subject info of a point is written when its
coordinates have together no more octets than the limit of the curve. Above it
the error names the content of the bit string, if that is too long, and
otherwise the content of the sequence. The same is true of an Ed25519 key. What
is written has the right length in front of every content, and no length at all
is written as another number. -/
theorem subjectInfo_limits :
    (∀ (c : Curve) (x y : Octets),
      ((∃ info, c.subjectInfo x y = .ok info) ↔ x.length + y.length ≤ c.coordinatesLimit)
        ∧ (65534 ≤ x.length + y.length →
          c.subjectInfo x y = .error ⟨x.length + y.length + 2⟩)
        ∧ (c.coordinatesLimit < x.length + y.length → x.length + y.length < 65534 →
          c.subjectInfo x y = .error ⟨x.length + y.length + c.infoOverhead⟩)
        ∧ ∀ info, c.subjectInfo x y = .ok info →
          IsForm [Oid.ecPublicKey.element, c.oid.element] (0x04 :: (x ++ y)) info)
      ∧ (∀ key : Octets,
        ((∃ info, Ed25519.subjectInfo key = .ok info) ↔ key.length ≤ 65523)
          ∧ (65535 ≤ key.length → Ed25519.subjectInfo key = .error ⟨key.length + 1⟩)
          ∧ (65523 < key.length → key.length < 65535 →
            Ed25519.subjectInfo key = .error ⟨key.length + 12⟩)
          ∧ ∀ info, Ed25519.subjectInfo key = .ok info →
            IsForm [Oid.ed25519.element] key info)
      ∧ ∀ n length, Der.lengthOctets n = .ok length → Der.IsLength n length := by
  refine ⟨fun c x y => ?_, fun key => ?_, fun n length => Der.isLength_of_lengthOctets⟩
  · obtain ⟨hok, hcontent, hsequence⟩ := c.outcome_subjectInfo x y
    exact ⟨hok, hcontent, hsequence, fun info => isForm_of_curve⟩
  · obtain ⟨hok, hcontent, hsequence⟩ := Ed25519.outcome_subjectInfo key
    exact ⟨hok, hcontent, hsequence, fun info => isForm_of_ed25519⟩

/-- Coordinates at the limit of the 256-bit curve and one octet above it, and
Ed25519 keys in the band between the two limits. -/
theorem subjectInfo_limits_edges :
    (∃ info, Curve.p256.subjectInfo (List.replicate 65508 0) [] = .ok info
        ∧ IsForm [Oid.ecPublicKey.element, Curve.p256.oid.element]
          (0x04 :: (List.replicate 65508 0 ++ [])) info)
      ∧ Curve.p256.subjectInfo (List.replicate 65500 0) (List.replicate 9 0) = .error ⟨65536⟩
      ∧ Curve.p521.subjectInfo (List.replicate 65511 0) [0] = .error ⟨65536⟩
      ∧ Curve.p521.subjectInfo (List.replicate 65533 0) [0] = .error ⟨65536⟩
      ∧ Ed25519.subjectInfo (List.replicate 65524 0) = .error ⟨65536⟩
      ∧ Ed25519.subjectInfo (List.replicate 65534 0) = .error ⟨65546⟩
      ∧ Ed25519.subjectInfo (List.replicate 65535 0) = .error ⟨65536⟩ := by
  have hlength (n : Nat) : (List.replicate n (0 : UInt8)).length = n := List.length_replicate
  have hlengths (n k : Nat) : (List.replicate n (0 : UInt8)).length
      + (List.replicate k (0 : UInt8)).length = n + k := by rw [hlength, hlength]
  obtain ⟨hcurve, hed25519, -⟩ := subjectInfo_limits
  have hp256 := hcurve .p256
  have hp521 := hcurve .p521
  refine ⟨?atLimit, ?above, ?band, ?bitString, ?keyBand, ?keyAbove, ?keyBitString⟩
  case atLimit =>
    obtain ⟨hok, -, -, hform⟩ := hp256 (List.replicate 65508 0) (List.replicate 0 0)
    rw [hlengths] at hok
    obtain ⟨info, hinfo⟩ := hok.2 (by decide)
    exact ⟨info, hinfo, hform info hinfo⟩
  case above =>
    obtain ⟨-, -, hsequence, -⟩ := hp256 (List.replicate 65500 0) (List.replicate 9 0)
    rw [hlengths] at hsequence
    exact hsequence (by decide) (by decide)
  case band =>
    obtain ⟨-, -, hsequence, -⟩ := hp521 (List.replicate 65511 0) (List.replicate 1 0)
    rw [hlengths] at hsequence
    exact hsequence (by decide) (by decide)
  case bitString =>
    obtain ⟨-, hcontent, -, -⟩ := hp521 (List.replicate 65533 0) (List.replicate 1 0)
    rw [hlengths] at hcontent
    exact hcontent (by decide)
  case keyBand =>
    obtain ⟨-, -, hsequence, -⟩ := hed25519 (List.replicate 65524 0)
    rw [hlength] at hsequence
    exact hsequence (by decide) (by decide)
  case keyAbove =>
    obtain ⟨-, -, hsequence, -⟩ := hed25519 (List.replicate 65534 0)
    rw [hlength] at hsequence
    exact hsequence (by decide) (by decide)
  case keyBitString =>
    obtain ⟨-, hcontent, -, -⟩ := hed25519 (List.replicate 65535 0)
    rw [hlength] at hcontent
    exact hcontent (by decide)

end SubjectInfo

end KeyForms
