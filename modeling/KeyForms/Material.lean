import KeyForms.KeyKind
import KeyForms.KeyMap.Decoding
import KeyForms.Magnitude
import KeyForms.SubjectInfo.Encoding

/-!
# Key material

Key material is a key in the form in which it is handed over: a subject info
for a key on a curve, two magnitudes for an RSA key. It is made from the
fields of a key map (`Material.ofKeyMap`), and nothing about the key itself
is checked in that – whether a point lies on its curve is for the receiver
to say.

Only the fields that belong to the kind of key are read, in a fixed order,
after those that tell the kind. Two key maps that agree on them give the same
material, or fail in the same way.
-/

namespace KeyForms

/-- **Key material.** -/
inductive Material where
  /-- The subject info of a point of a curve. -/
  | ec (curve : Curve) (info : Octets)
  /-- The subject info of an Ed25519 key. -/
  | ed25519 (info : Octets)
  /-- The two numbers of an RSA key. -/
  | rsa (modulus exponent : Magnitude)
deriving DecidableEq

namespace Material

/-- The kind of the key. -/
def kind : Material → KeyKind
  | ec curve _ => .ec curve
  | ed25519 _ => .ed25519
  | rsa _ _ => .rsa

/-- The type of the key. -/
def keyType (material : Material) : KeyType := material.kind.keyType

/-- **The material of a key of a known kind**, from the fields of a key map. -/
def ofFields (key : KeyMap) : KeyKind → Except KeyError Material
  | .ec curve => do
    let x ← key.octets Label.x
    let y ← key.octets Label.y
    let info ← (curve.subjectInfo x y).mapError .tooLong
    return ec curve info
  | .ed25519 => do
    let x ← key.octets Label.x
    let info ← (Ed25519.subjectInfo x).mapError .tooLong
    return ed25519 info
  | .rsa => do
    let modulus ← key.octets Label.modulus
    let exponent ← key.octets Label.exponent
    return rsa (.ofOctets modulus) (.ofOctets exponent)

/-- **The material of the key in a key map.** -/
def ofKeyMap (key : KeyMap) : Except KeyError Material := do
  let kind ← KeyKind.ofKeyMap key
  ofFields key kind

/-- The material of the key that octets encode. -/
def ofOctets (s : Octets) : Except KeyError Material := do
  let key ← KeyMap.decode s
  ofKeyMap key

end Material

end KeyForms
