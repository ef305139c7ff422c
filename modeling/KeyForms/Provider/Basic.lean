import KeyForms.Error
import KeyForms.Material

/-!
# Providers

A provider is whoever keys are handed over to: it turns material into keys of
its own, of type `κ`, or refuses it for a reason of type `ε`. It works in a
monad `m`, so it may keep a state; a provider whose answer depends on nothing
but the material is one in the identity monad.

`Provider.submit` hands over one material, with one request to the provider
and no second attempt.
-/

namespace KeyForms

/-- **A provider of keys.** -/
structure Provider (m : Type → Type) (ε κ : Type) where
  /-- Take a point of a curve, in its subject info. -/
  importEc : Curve → Octets → m (Except ε κ)
  /-- Take an Ed25519 key, in its subject info. -/
  importEd25519 : Octets → m (Except ε κ)
  /-- Take an RSA key: the modulus, then the exponent. -/
  importRsa : Magnitude → Magnitude → m (Except ε κ)

namespace Provider

variable {m : Type → Type} {ε κ : Type}

/-- **Hand material over** to a provider: one request, told by the kind. -/
def submit (provider : Provider m ε κ) : Material → m (Except ε κ)
  | .ec curve info => provider.importEc curve info
  | .ed25519 info => provider.importEd25519 info
  | .rsa modulus exponent => provider.importRsa modulus exponent

end Provider

end KeyForms
