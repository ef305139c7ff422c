import KeyForms.Curve.Point
import KeyForms.Ed25519
import KeyForms.SubjectInfo.Decoding

/-!
# Keys in subject infos

A subject info holds some key; a reader expects one of a certain kind. The
expectations are checked one after the other, and the first that is not met
is the reason for the refusal (`SubjectInfo.Refusal`): the octets are no
subject info at all, they name another algorithm, their parameters are not
those of the algorithm, or the bit string holds no such key.

A reader has identifiers of its own for what it expects, and does not share the
registry of those who write subject infos. That the two agree is a theorem
(`SubjectInfo.pointParameter_eq`).
-/

namespace KeyForms

namespace SubjectInfo

/-- **Why octets are not the subject info of a key of the expected kind.** -/
inductive Refusal where
  /-- They are no subject info, or the name of a curve in them is no object
  identifier. -/
  | malformed
  /-- They do not name the expected algorithm or curve, which is this one. -/
  | expected (oid : Oid)
  /-- They name no curve. -/
  | parametersMissing
  /-- The bit string is not a point of the curve. -/
  | notPoint
  /-- The bit string is no key of the algorithm, or the algorithm has
  parameters and should have none. -/
  | notKey
deriving DecidableEq

/-- The words for a refusal. -/
def Refusal.message : Refusal → String
  | .malformed => "ASN.1 error"
  | .expected oid => "unknown/unsupported algorithm OID: " ++ oid.text
  | .parametersMissing => "AlgorithmIdentifier parameters missing"
  | .notPoint => "ASN.1 error: malformed ASN.1 DER value for BIT STRING"
  | .notKey => "SPKI cryptographic key data malformed"

/-! ## What is expected -/

/-- The algorithm that points are expected with, 1.2.840.10045.2.1. -/
def pointAlgorithm : Oid := ⟨[0x2a, 0x86, 0x48, 0xce, 0x3d, 0x02, 0x01]⟩

/-- The parameter that points of a curve are expected with: 1.2.840.10045.3.1.7,
1.3.132.0.34 or 1.3.132.0.35. -/
def pointParameter : Curve → Oid
  | .p256 => ⟨[0x2a, 0x86, 0x48, 0xce, 0x3d, 0x03, 0x01, 0x07]⟩
  | .p384 => ⟨[0x2b, 0x81, 0x04, 0x00, 0x22]⟩
  | .p521 => ⟨[0x2b, 0x81, 0x04, 0x00, 0x23]⟩

/-- The algorithm that Ed25519 keys are expected with, 1.3.101.112. -/
def ed25519Algorithm : Oid := ⟨[0x2b, 0x65, 0x70]⟩

/-! ## Keys -/

/-- The octets of a key that uses all bits of them. -/
def wholeKey? (info : SubjectInfo) : Option Octets :=
  if info.unusedBits = 0 then some info.key else none

/-- **The point that a subject info holds**, if it is the subject info of a
point of the expected curve. -/
def point (info : SubjectInfo) (c : Curve) : Except Refusal c.Point :=
  if info.algorithm = pointAlgorithm then
    match info.parameters with
    | none => .error .parametersMissing
    | some parameters =>
      match Oid.ofElement? parameters with
      | none => .error .malformed
      | some oid =>
        if oid = pointParameter c then
          match info.wholeKey? >>= Curve.Point.ofOctets? c with
          | some point => .ok point
          | none => .error .notPoint
        else .error (.expected (pointParameter c))
  else .error (.expected pointAlgorithm)

/-- **The Ed25519 key that a subject info holds**, if it is the subject info
of one. -/
def ed25519Key (info : SubjectInfo) : Except Refusal Ed25519.Key :=
  if info.algorithm = ed25519Algorithm then
    if info.parameters = none then
      match info.wholeKey? >>= Ed25519.Key.ofOctets? with
      | some key => .ok key
      | none => .error .notKey
    else .error .notKey
  else .error (.expected ed25519Algorithm)

end SubjectInfo

/-- The point of a subject info that is still to be read. -/
def Curve.Point.ofSubjectInfo (c : Curve) (s : Octets) : Except SubjectInfo.Refusal c.Point :=
  match SubjectInfo.ofOctets? s with
  | some info => info.point c
  | none => .error .malformed

/-- The Ed25519 key of a subject info that is still to be read. -/
def Ed25519.Key.ofSubjectInfo (s : Octets) : Except SubjectInfo.Refusal Ed25519.Key :=
  match SubjectInfo.ofOctets? s with
  | some info => info.ed25519Key
  | none => .error .malformed

end KeyForms
