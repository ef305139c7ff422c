import KeyForms.Cbor.Head
import KeyForms.KeyMap.Basic

/-!
# Writing key maps

A key map is written as one CBOR map of definite length, with the shortest
heads throughout. Its entries stand in the order in which a key map holds
them, so writing is going through them once, and it cannot fail.
-/

namespace KeyForms

/-- The octets of a value. -/
def Parameter.encode : Parameter → Octets
  | .integer n => Cbor.encodeInteger n.toInt
  | .octets s => Cbor.encodeOctets s

/-- The octets of an entry: its label, then its value. -/
def KeyEntry.encode (entry : KeyEntry) : Octets :=
  Cbor.encodeInteger entry.1.toInt ++ entry.2.encode

/-- **The octets of a key map.** -/
def KeyMap.encode (key : KeyMap) : Octets :=
  Cbor.encodeMapHead key.size ++ key.entries.flatMap KeyEntry.encode

end KeyForms
