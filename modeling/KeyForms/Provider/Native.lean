import KeyForms.Provider.Basic
import KeyForms.PublicKey
import KeyForms.SubjectInfo.Key

/-!
# The native provider

The native provider checks material itself: it reads a subject info, asks
whether the point lies on the curve, and so on, and its keys are
`PublicKey`s. Its answer depends on the material alone.

It can be set up for some kinds of key only. Material of another kind is
refused before it is looked at.
-/

namespace KeyForms

/-- **The kinds of key that a native provider is set up for.** -/
abbrev KeyKinds := KeyKind → Bool

namespace KeyKinds

/-- All kinds. -/
def all : KeyKinds := fun _ => true

/-- One kind and no other. -/
def only (kind : KeyKind) : KeyKinds := fun k => k = kind

end KeyKinds

namespace Native

/-- **Why the native provider refuses material.** -/
inductive Refusal where
  /-- The subject info is not that of a key. -/
  | info (refusal : SubjectInfo.Refusal)
  /-- The numbers are not those of a key. -/
  | rsa (flaw : Rsa.Flaw)
  /-- The provider is not set up for this kind of key. -/
  | unavailable (kind : KeyKind)
deriving DecidableEq

/-- The words for a refusal. -/
def Refusal.message : Refusal → String
  | .info refusal => "invalid SubjectPublicKeyInfo: " ++ refusal.message
  | .rsa flaw => "invalid RSA public key: " ++ flaw.message
  | .unavailable kind => kind.name ++ " support is not enabled"

/-- An answer, unless the provider is not set up for the kind of key. -/
def guarded (kinds : KeyKinds) (kind : KeyKind) (answer : Except Refusal PublicKey) :
    Except Refusal PublicKey :=
  if kinds kind then answer else .error (.unavailable kind)

/-- **The native provider**, set up for the given kinds of key. -/
def provider (kinds : KeyKinds) : Provider Id Refusal PublicKey where
  importEc curve info := guarded kinds (.ec curve)
    (match Curve.Point.ofSubjectInfo curve info with
    | .ok point => .ok (.ec curve point)
    | .error refusal => .error (.info refusal))
  importEd25519 info := guarded kinds .ed25519
    (match Ed25519.Key.ofSubjectInfo info with
    | .ok key => .ok (.ed25519 key)
    | .error refusal => .error (.info refusal))
  importRsa modulus exponent := guarded kinds .rsa
    (match Rsa.Key.ofNumbers modulus exponent with
    | .ok key => .ok (.rsa key)
    | .error flaw => .error (.rsa flaw))

end Native

end KeyForms
