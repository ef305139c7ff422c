import KeyForms.Der.Element
import KeyForms.Oid
import KeyForms.RawPoint

/-!
# Writing subject infos

A subject info is the form in which a key on a curve is handed over: a
sequence of an algorithm identifier and of a bit string that holds the key.
The identifier of a key with two coordinates names the family of algorithms
and the curve, and its bit string holds the raw point with its marker. The
identifier of an Ed25519 key names the algorithm and nothing else.

The coordinates are written as they are, one after the other. No length is
checked here but that of a DER content, so writing fails for very long keys
only.
-/

namespace KeyForms

/-- **The subject info of a point** on a curve, by the octets of its
coordinates. -/
def Curve.subjectInfo (c : Curve) (x y : Octets) : Except Der.TooLong Octets := do
  let family ← Der.objectIdentifier Oid.ecPublicKey.content
  let curve ← Der.objectIdentifier c.oid.content
  let algorithm ← Der.sequence [family, curve]
  let key ← Der.bitString (RawPoint.ofCoordinates x y)
  Der.sequence [algorithm, key]

namespace Ed25519

/-- The algorithm identifier of Ed25519 keys: a sequence of the one object
identifier. -/
def algorithmIdentifier : Octets := [0x30, 0x05, 0x06, 0x03, 0x2b, 0x65, 0x70]

/-- **The subject info of an Ed25519 key**, by its octets. -/
def subjectInfo (key : Octets) : Except Der.TooLong Octets := do
  let key ← Der.bitString key
  Der.sequence [algorithmIdentifier, key]

/-- The algorithm identifier is the written form of what it says. -/
theorem algorithmIdentifier_eq :
    (Der.objectIdentifier Oid.ed25519.content >>= fun oid => Der.sequence [oid])
      = .ok algorithmIdentifier := rfl

end Ed25519

end KeyForms
