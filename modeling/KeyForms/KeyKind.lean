import KeyForms.Curve.Basic
import KeyForms.KeyMap.Fields

/-!
# Kinds of key

The kind of a key is its type together with its curve: five kinds in all. A
key map tells its kind in two fields, and these are read before any other, so
a key of an unknown kind is refused as such whatever else is wrong with it.
-/

namespace KeyForms

/-- **The kinds of key.** -/
inductive KeyKind where
  /-- A point of a curve. -/
  | ec (curve : Curve)
  /-- An Ed25519 key. -/
  | ed25519
  /-- An RSA key. -/
  | rsa
deriving DecidableEq

namespace KeyKind

/-- The type of the keys of a kind. -/
def keyType : KeyKind → KeyType
  | ec _ => .ec2
  | ed25519 => .okp
  | rsa => .rsa

/-- The name that messages use. -/
def name : KeyKind → String
  | ec curve => curve.name
  | ed25519 => "Ed25519"
  | rsa => "RSA"

/-- The curve of the points of a kind. -/
def curve? : KeyKind → Option Curve
  | ec curve => some curve
  | _ => none

/-- **The kind that a key type and a curve number are**, for the two key
types that have curves. -/
def ofCurveId (keyType : KeyType) (id : Int64) : Except KeyError KeyKind :=
  let kind? :=
    match keyType with
    | .ec2 => (Curve.ofId? id).map ec
    | .okp => (OkpCurve.ofId? id).map fun | .ed25519 => ed25519
    | .rsa => some rsa
  match kind? with
  | some kind => .ok kind
  | none => .error (.unsupportedCurve keyType id)

/-- **The kind of the key in a key map.** -/
def ofKeyMap (key : KeyMap) : Except KeyError KeyKind := do
  let id ← key.keyTypeId
  match KeyType.ofId? id with
  | none => throw (.unsupportedKeyType id)
  | some .rsa => return rsa
  | some keyType => ofCurveId keyType (← key.integer Label.curve)

end KeyKind

end KeyForms
