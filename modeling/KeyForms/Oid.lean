import KeyForms.Octets

/-!
# Object identifiers

An object identifier names an algorithm or a curve. It is kept as the
content octets of its DER element, which is what is written, read and
compared. `Oid.arcs` reads the numbers out of them, `Oid.text` writes those
with dots between, and `Oid.isWellFormed` tells which octet strings are the
content of an identifier at all.
-/

namespace KeyForms

/-- **An object identifier**, by its content octets. -/
structure Oid where
  /-- The content octets of the DER element. -/
  content : Octets
deriving DecidableEq

namespace Oid

/-- The numbers written seven bits to an octet, the last octet of each having
its high bit clear. `pending` is what was read of an unfinished number. -/
def subidentifiers : Nat → Octets → List Nat
  | _, [] => []
  | pending, b :: s =>
    let n := 128 * pending + b.toNat % 128
    if b < 0x80 then n :: subidentifiers 0 s else subidentifiers n s

/-- **The arcs**: the first octet holds two, forty times the one plus the
other. -/
def arcs (oid : Oid) : List Nat :=
  match oid.content with
  | [] => []
  | b :: s => b.toNat / 40 :: b.toNat % 40 :: subidentifiers 0 s

/-- The dotted text of an identifier. -/
def text (oid : Oid) : String :=
  ".".intercalate (oid.arcs.map toString)

/-- Whether every number that is begun is ended in time: within four octets,
or by a fifth that is below 16. `used` counts the octets of an unfinished
number. -/
def arcsEnd : Nat → Octets → Bool
  | used, [] => used == 0
  | used, b :: s =>
    if b < 0x80 then (used < 4 || b < 0x10) && arcsEnd 0 s
    else used < 4 && arcsEnd (used + 1) s

/-- **Whether octets are the content of an identifier**: at least three arcs,
at most 39 octets, a first octet for one of the three roots, and no arc left
open. -/
def isWellFormed (content : Octets) : Bool :=
  3 ≤ content.length && content.length ≤ 39 &&
    match content with
    | [] => false
    | b :: s => b < 120 && arcsEnd 0 s

/-! ## The identifiers of public keys -/

/-- `id-ecPublicKey`, 1.2.840.10045.2.1. -/
def ecPublicKey : Oid := ⟨[0x2a, 0x86, 0x48, 0xce, 0x3d, 0x02, 0x01]⟩

/-- `secp256r1`, 1.2.840.10045.3.1.7. -/
def secp256r1 : Oid := ⟨[0x2a, 0x86, 0x48, 0xce, 0x3d, 0x03, 0x01, 0x07]⟩

/-- `secp384r1`, 1.3.132.0.34. -/
def secp384r1 : Oid := ⟨[0x2b, 0x81, 0x04, 0x00, 0x22]⟩

/-- `secp521r1`, 1.3.132.0.35. -/
def secp521r1 : Oid := ⟨[0x2b, 0x81, 0x04, 0x00, 0x23]⟩

/-- `id-Ed25519`, 1.3.101.112. -/
def ed25519 : Oid := ⟨[0x2b, 0x65, 0x70]⟩

end Oid

end KeyForms
