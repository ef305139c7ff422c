import KeyForms.Der.Reader
import KeyForms.Oid

/-!
# Reading subject infos

`SubjectInfo` is what a subject info says: the algorithm, its parameters if
there are any, and a bit string. The reader takes it apart strictly. Nothing
may follow the outer sequence or be left over inside either sequence, the
algorithm is a well-formed object identifier, and the parameters are at most
one element, of any kind.

A bit string says in its first octet how many bits of its last octet are
unused, so seven at the most, and none when no octet follows.
-/

namespace KeyForms

/-- The object identifier that an element is, if it is one. -/
def Oid.ofElement? (e : Der.Element) : Option Oid :=
  if e.tag = Der.Tag.objectIdentifier ∧ Oid.isWellFormed e.content = true then some ⟨e.content⟩
  else none

/-- The bits that an element is, if it is a bit string: how many bits of the
last octet are unused, and the octets. -/
def Der.Element.bits? (e : Der.Element) : Option (Nat × Octets) :=
  if e.tag = Der.Tag.bitString then
    match e.content with
    | [] => none
    | unused :: octets =>
      if unused.toNat ≤ 7 ∧ (octets = [] → unused = 0) then some (unused.toNat, octets) else none
  else none

/-- The elements of a sequence, if an element is one. -/
def Der.Element.parts? (e : Der.Element) : Option (List Der.Element) :=
  if e.tag = Der.Tag.sequence then Der.Element.readAll e.content else none

/-- **What a subject info says.** -/
structure SubjectInfo where
  /-- The algorithm. -/
  algorithm : Oid
  /-- The parameters of the algorithm, if there are any. -/
  parameters : Option Der.Element
  /-- How many bits of the last octet of the key are unused. -/
  unusedBits : Nat
  /-- The octets of the key. -/
  key : Octets
deriving DecidableEq

namespace SubjectInfo

/-- An algorithm and its parameters, from the elements of an algorithm
identifier. -/
def algorithmOf? : List Der.Element → Option (Oid × Option Der.Element)
  | [oid] => (Oid.ofElement? oid).map (·, none)
  | [oid, parameters] => (Oid.ofElement? oid).map (·, some parameters)
  | _ => none

/-- What a subject info says, from its two elements. -/
def ofParts? : List Der.Element → Option SubjectInfo
  | [algorithm, key] => do
    let (oid, parameters) ← algorithm.parts? >>= algorithmOf?
    let (unusedBits, octets) ← key.bits?
    return ⟨oid, parameters, unusedBits, octets⟩
  | _ => none

/-- **The subject info that octets write**, if they write one. -/
def ofOctets? (s : Octets) : Option SubjectInfo :=
  match Der.Element.readAll s with
  | some [outer] => outer.parts? >>= ofParts?
  | _ => none

end SubjectInfo

end KeyForms
