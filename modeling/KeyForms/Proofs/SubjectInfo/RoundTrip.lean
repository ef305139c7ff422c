import KeyForms.Proofs.Der.RoundTrip
import KeyForms.SubjectInfo.Decoding
import KeyForms.SubjectInfo.Encoding
import KeyForms.SubjectInfo.Key

/-!
# Written subject infos are read

What a subject info is read as is said here at every level: a sequence, in it
an algorithm identifier and a bit string, and in the identifier its elements,
with nothing left over (`SubjectInfo.ReadsAs`). A subject info that is written
for a point is read as just what it was written from: the family of algorithms,
the curve as the parameter, and a bit string of whole octets that is the marker
with both coordinates after it (`SubjectInfo.readsAs_of_curve`). Nothing is
asked of the coordinates. They may be of any lengths, and the reader cannot tell
where the one ends and the other begins.

An algorithm identifier is a constant for each curve
(`Curve.algorithmIdentifier`), so a subject info is that constant and one bit
string (`SubjectInfo.ofIdentifier`). The identifier of Ed25519 keys is a
constant to begin with, and what holds of points holds of them
(`SubjectInfo.readsAs_of_ed25519`).

Those who expect a key look for identifiers of their own. These are the ones that are
written (`SubjectInfo.pointAlgorithm_eq`, `SubjectInfo.pointParameter_eq`,
`SubjectInfo.ed25519Algorithm_eq`), or no key would be read from any subject info.
-/

namespace KeyForms

/-- A computation that succeeds has steps that do. -/
theorem exists_of_bind_eq_ok {ε α β : Type} {x : Except ε α} {f : α → Except ε β} {b : β}
    (h : x >>= f = .ok b) : ∃ a, x = .ok a ∧ f a = .ok b := by
  cases x with
  | error e => cases h
  | ok a => exact ⟨a, rfl, h⟩

/-- **A computation in two steps fails** in the first step, or in the second one
with what the first has given. -/
theorem bind_eq_error_iff {ε α β : Type} {x : Except ε α} {f : α → Except ε β} {error : ε} :
    x >>= f = .error error ↔ x = .error error ∨ ∃ a, x = .ok a ∧ f a = .error error := by
  cases x with
  | error e =>
    constructor
    · intro h
      cases h
      exact Or.inl rfl
    · rintro (h | ⟨a, ha, -⟩)
      · cases h
        rfl
      · cases ha
  | ok a =>
    constructor
    · intro h
      exact Or.inr ⟨a, rfl, h⟩
    · rintro (h | ⟨b, hb, h⟩)
      · cases h
      · cases hb
        exact h

/-- A computation whose errors are put in other terms succeeds as before. -/
theorem mapError_eq_ok_iff {ε ε' α : Type} {f : ε → ε'} {x : Except ε α} {a : α} :
    x.mapError f = .ok a ↔ x = .ok a := by
  constructor
  · intro h
    cases x with
    | error e => cases h
    | ok b =>
      cases h
      rfl
  · rintro rfl
    rfl

/-- The element that names an object identifier. -/
def Oid.element (oid : Oid) : Der.Element := ⟨Der.Tag.objectIdentifier, oid.content⟩

namespace SubjectInfo

/-- **Octets are read as a subject info**: a sequence of an algorithm identifier
and of a bit string, where the identifier is a sequence of the given elements
and the bit string has the given octets and no unused bits. Nothing is left over
at any level. -/
def ReadsAs (info : Octets) (identifier : List Der.Element) (key : Octets) : Prop :=
  ∃ outer algorithm, Der.Element.readAll info = some [⟨Der.Tag.sequence, outer⟩]
    ∧ Der.Element.readAll outer
      = some [⟨Der.Tag.sequence, algorithm⟩, ⟨Der.Tag.bitString, 0 :: key⟩]
    ∧ Der.Element.readAll algorithm = some identifier

/-- **A subject info from its algorithm identifier** and the octets of its
key. -/
def ofIdentifier (identifier content : Octets) : Except Der.TooLong Octets := do
  let key ← Der.bitString content
  Der.sequence [identifier, key]

/-- **A subject info that is written is read** as what it was written from. -/
theorem readsAs_of_identifier {algorithm identifier info content : Octets}
    {elements : List Der.Element}
    (halgorithm : (Der.Element.mk Der.Tag.sequence algorithm).IsWrittenAs identifier)
    (hread : Der.Element.readAll algorithm = some elements)
    (h : ofIdentifier identifier content = .ok info) : ReadsAs info elements content := by
  obtain ⟨key, hkey, hinfo⟩ := exists_of_bind_eq_ok h
  have hbits : (Der.Element.mk Der.Tag.bitString (0 :: content)).IsWrittenAs key := ⟨rfl, hkey⟩
  have houter : (Der.Element.mk Der.Tag.sequence [identifier, key].flatten).IsWrittenAs info :=
    ⟨rfl, hinfo⟩
  exact ⟨_, _, Der.Element.readAll_of_isWrittenAs houter,
    Der.Element.readAll_flatten (.cons halgorithm (.cons hbits .nil)), hread⟩

/-- **What is read is what the elements say.** -/
theorem ofOctets?_of_readsAs {info key : Octets} {identifier : List Der.Element} {oid : Oid}
    {parameters : Option Der.Element} (h : ReadsAs info identifier key)
    (hmeans : algorithmOf? identifier = some (oid, parameters)) :
    ofOctets? info = some ⟨oid, parameters, 0, key⟩ := by
  obtain ⟨outer, algorithm, houter, hparts, hidentifier⟩ := h
  have hbits : (Der.Element.mk Der.Tag.bitString (0 :: key)).bits? = some (0, key) := by
    rw [Der.Element.bits?, if_pos rfl]
    exact if_pos ⟨by decide, fun _ => rfl⟩
  rw [ofOctets?, houter]
  show (Der.Element.mk Der.Tag.sequence outer).parts? >>= ofParts? = _
  rw [Der.Element.parts?, if_pos rfl, hparts]
  show ofParts? [⟨Der.Tag.sequence, algorithm⟩, ⟨Der.Tag.bitString, 0 :: key⟩] = _
  rw [ofParts?, hbits, Der.Element.parts?, if_pos rfl, hidentifier]
  show (algorithmOf? identifier >>= fun _ => _) = _
  rw [hmeans]
  rfl

end SubjectInfo

namespace Curve

/-- **The algorithm identifier** of the points of a curve: a sequence of two
object identifiers. -/
def algorithmIdentifier (c : Curve) : Octets :=
  let family := [0x06, 0x07] ++ Oid.ecPublicKey.content
  let curve := 0x06 :: UInt8.ofNat c.oid.content.length :: c.oid.content
  0x30 :: UInt8.ofNat (family ++ curve).length :: (family ++ curve)

/-- **A subject info is the algorithm identifier of the curve and a bit
string** of the marker and both coordinates. -/
theorem subjectInfo_eq (c : Curve) (x y : Octets) :
    c.subjectInfo x y
      = SubjectInfo.ofIdentifier c.algorithmIdentifier (RawPoint.ofCoordinates x y) := by
  cases c <;> rfl

/-- Only the octets of both coordinates together go into a subject info. -/
theorem subjectInfo_congr {c : Curve} {x y x' y' : Octets} (h : x ++ y = x' ++ y') :
    c.subjectInfo x y = c.subjectInfo x' y' := by
  rw [subjectInfo_eq, subjectInfo_eq, RawPoint.ofCoordinates, RawPoint.ofCoordinates, h]

end Curve

/-- **The subject info of a point is read as what it was written from**: the
family of algorithms and the curve, and the marker with both coordinates after
it. -/
theorem SubjectInfo.readsAs_of_curve {c : Curve} {x y info : Octets}
    (h : c.subjectInfo x y = .ok info) :
    ReadsAs info [Oid.ecPublicKey.element, c.oid.element] (RawPoint.ofCoordinates x y) := by
  have hidentifier : (Der.Element.mk Der.Tag.sequence (c.algorithmIdentifier.drop 2)).IsWrittenAs
      c.algorithmIdentifier := by
    cases c <;> exact ⟨rfl, rfl⟩
  rw [Curve.subjectInfo_eq] at h
  refine readsAs_of_identifier hidentifier ?_ h
  cases c <;> decide

/-- **The subject info of a point says what it was written from.** -/
theorem SubjectInfo.ofOctets?_of_curve {c : Curve} {x y info : Octets}
    (h : c.subjectInfo x y = .ok info) :
    ofOctets? info = some ⟨Oid.ecPublicKey, some c.oid.element, 0, RawPoint.ofCoordinates x y⟩ :=
  ofOctets?_of_readsAs (readsAs_of_curve h) rfl

/-! ## What is expected is what is written -/

namespace SubjectInfo

theorem pointAlgorithm_eq : pointAlgorithm = Oid.ecPublicKey := rfl

theorem pointParameter_eq (c : Curve) : pointParameter c = c.oid := by
  cases c <;> rfl

theorem ed25519Algorithm_eq : ed25519Algorithm = Oid.ed25519 := rfl

end SubjectInfo

/-- The element that names a curve is the identifier of the curve. -/
theorem Curve.ofElement?_oid (c : Curve) : Oid.ofElement? c.oid.element = some c.oid := by
  cases c <;> rfl

/-- **Whether a point is read back from its subject info** is for its raw form
to say. The refusal, if there is one, is always the same. -/
theorem Curve.Point.ofSubjectInfo_of_curve {c : Curve} {x y info : Octets}
    (h : c.subjectInfo x y = .ok info) :
    ofSubjectInfo c info = match ofOctets? c (RawPoint.ofCoordinates x y) with
      | some point => .ok point
      | none => .error .notPoint := by
  rw [ofSubjectInfo, SubjectInfo.ofOctets?_of_curve h]
  show SubjectInfo.point _ c = _
  rw [SubjectInfo.point, if_pos SubjectInfo.pointAlgorithm_eq.symm, SubjectInfo.pointParameter_eq]
  simp only [ofElement?_oid, if_true]
  rfl

/-! ## Ed25519 keys -/

/-- **The subject info of an Ed25519 key is read as what it was written from**: the
algorithm without parameters, and the octets of the key. -/
theorem SubjectInfo.readsAs_of_ed25519 {x info : Octets} (h : Ed25519.subjectInfo x = .ok info) :
    ReadsAs info [Oid.ed25519.element] x := by
  have hidentifier : (Der.Element.mk Der.Tag.sequence
      (Ed25519.algorithmIdentifier.drop 2)).IsWrittenAs Ed25519.algorithmIdentifier := ⟨rfl, rfl⟩
  exact readsAs_of_identifier hidentifier (by decide) h

/-- **The subject info of an Ed25519 key says what it was written from.** -/
theorem SubjectInfo.ofOctets?_of_ed25519 {x info : Octets}
    (h : Ed25519.subjectInfo x = .ok info) :
    ofOctets? info = some ⟨Oid.ed25519, none, 0, x⟩ :=
  ofOctets?_of_readsAs (readsAs_of_ed25519 h) rfl

/-- **Whether an Ed25519 key is read back from its subject info** is for its
octets to say. -/
theorem Ed25519.Key.ofSubjectInfo_of_ed25519 {x info : Octets}
    (h : Ed25519.subjectInfo x = .ok info) :
    ofSubjectInfo info = match ofOctets? x with
      | some key => .ok key
      | none => .error .notKey := by
  rw [ofSubjectInfo, SubjectInfo.ofOctets?_of_ed25519 h]
  show SubjectInfo.ed25519Key _ = _
  rw [SubjectInfo.ed25519Key, if_pos SubjectInfo.ed25519Algorithm_eq.symm, if_pos rfl]
  rfl

end KeyForms
