import KeyForms.Curve.Point
import KeyForms.Ed25519
import KeyForms.KeyKind
import KeyForms.RawPoint
import KeyForms.Rsa

/-!
# Public keys

A public key is what material is checked into: a point that lies on its
curve, the octets of an Ed25519 key, or two numbers without a flaw. Each
carries the proof of that, and two public keys are the same key exactly when
they are equal.
-/

namespace KeyForms

/-- **A public key.** -/
inductive PublicKey where
  /-- A point of a curve. -/
  | ec (curve : Curve) (point : curve.Point)
  /-- An Ed25519 key. -/
  | ed25519 (key : Ed25519.Key)
  /-- An RSA key. -/
  | rsa (key : Rsa.Key)
deriving DecidableEq

namespace PublicKey

/-- The kind of a key. -/
def kind : PublicKey → KeyKind
  | ec curve _ => .ec curve
  | ed25519 _ => .ed25519
  | rsa _ => .rsa

/-- The type of a key. -/
def keyType (key : PublicKey) : KeyType := key.kind.keyType

/-- The curve of a point. -/
def curve? (key : PublicKey) : Option Curve := key.kind.curve?

/-- **The raw point of a key**, with the marker in front and both coordinates
at the width of the field. Only points have one. -/
def rawPoint : PublicKey → Except KeyError Octets
  | ec curve point =>
    .ok (RawPoint.ofIntegers (Octets.ofNat curve.fieldOctets point.x)
      (Octets.ofNat curve.fieldOctets point.y) curve.fieldBits)
  | key => .error (.unsupportedKeyType key.keyType.id)

end PublicKey

end KeyForms
